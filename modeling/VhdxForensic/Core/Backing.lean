import VhdxForensic.Core.Base

/-!
# Positioned backings

A container is read through one of four backings: a file, a range of a
larger file, a buffer in memory, or a seekable stream. Files and streams may
serve a request in part, and the reader loops until the request is filled.
-/

namespace VhdxForensic

open Rust Rust.Bytes

/-- A file or stream that serves `served offset count` bytes of a request for
`count` bytes at `offset`: at least one before its end and never more than
were asked for. -/
structure ByteSource where
  /-- The bytes of the source. -/
  contents : Bytes
  /-- How many bytes a read at an offset delivers. -/
  served : Nat → Nat → Nat
  /-- A read delivers at most what is asked for and present. -/
  served_le : ∀ offset count,
    served offset count ≤ min count (contents.length - offset)
  /-- It delivers something if something is asked for and present. -/
  served_pos : ∀ offset count, 0 < count → offset < contents.length →
    0 < served offset count

/-- Fill a request by repeated positioned reads, stopping at the end of the
source. -/
def pread (file : ByteSource) (count offset : Nat) : Bytes :=
  if _nonempty : count = 0 then []
  else
    let n := file.served offset count
    if _progress : n = 0 then []
    else window file.contents offset n ++ pread file (count - n) (offset + n)
termination_by count

/-- The container's bytes, behind one of the four positioned readers. -/
inductive Backing where
  | file (source : ByteSource)
  | sub (source : ByteSource) (base len : Nat)
      (inside : base + len ≤ source.contents.length)
  | mem (bytes : Bytes)
  | reader (inner : ByteSource)

namespace Backing

/-- The byte string a backing presents. -/
def view : Backing → Bytes
  | .file source => source.contents
  | .sub source base len _ => window source.contents base len
  | .mem bytes => bytes
  | .reader inner => inner.contents

/-- Total length of the container. -/
def len : Backing → Nat
  | .file source => source.contents.length
  | .sub _ _ len _ => len
  | .mem bytes => bytes.length
  | .reader inner => inner.contents.length

/-- The bytes delivered into a buffer of `count` bytes from `offset`. -/
def readAt (backing : Backing) (count offset : Nat) : Bytes :=
  match backing with
  | .file source => pread source count offset
  | .sub source base len _ =>
      let avail := len - offset
      if avail = 0 then [] else pread source (min count avail) (base + offset)
  | .mem bytes =>
      let src := bytes.drop (min offset bytes.length)
      src.take (min src.length count)
  | .reader inner =>
      -- The stream is positioned at `offset` before every request.
      let avail := inner.contents.length - offset
      if avail = 0 then [] else pread inner (min count avail) offset

/-- Read into a fresh buffer, truncated to what was delivered. -/
def readExactAt {ε : Type} (backing : Backing) (offset count : Nat) :
    Exec ε Bytes := do
  let buf ← zeroed count
  return readAt backing buf.length offset

end Backing

/-- Partial answers do not show: the loop delivers the requested window. -/
theorem pread_eq_window (file : ByteSource) (count offset : Nat) :
    pread file count offset = window file.contents offset count := by
  induction count using Nat.strong_induction_on generalizing offset with
  | _ count inductionHypothesis =>
      rw [pread]
      by_cases empty : count = 0
      · rw [dif_pos empty, empty, window_empty]
      · rw [dif_neg empty]
        have atMost := file.served_le offset count
        by_cases stopped : file.served offset count = 0
        · have atEnd : file.contents.length ≤ offset := by
            by_contra before
            have := file.served_pos offset count (by omega) (by omega)
            omega
          simp [stopped, window, List.drop_eq_nil_of_le atEnd]
        · rw [dif_neg stopped,
            inductionHypothesis (count - file.served offset count) (by omega),
            ← window_append,
            show file.served offset count +
              (count - file.served offset count) = count by omega]

namespace Backing

theorem len_eq_length_view (backing : Backing) :
    backing.len = backing.view.length := by
  cases backing with
  | sub source base len inside =>
      exact (length_window_of_le inside).symm
  | file source => rfl
  | mem bytes => rfl
  | reader inner => rfl

/-- Every backing delivers the window of the bytes it presents. -/
theorem readAt_eq_window (backing : Backing) (count offset : Nat) :
    backing.readAt count offset = window backing.view offset count := by
  cases backing with
  | file source => exact pread_eq_window source count offset
  | sub source base len inside =>
      unfold readAt view
      by_cases past : len - offset = 0
      · simp only [past, if_true]
        rw [window_window, show min count (len - offset) = 0 by omega,
          window_empty]
      · simp only [past, if_false]
        rw [pread_eq_window, window_window]
  | mem bytes =>
      unfold readAt view window
      apply List.ext_getElem?
      intro index
      simp only [List.getElem?_take, List.getElem?_drop, List.length_drop]
      by_cases present : offset + index < bytes.length
      · rw [min_eq_left (show offset ≤ bytes.length by omega)]
        by_cases requested : index < count
        · rw [if_pos requested, if_pos (by omega)]
        · rw [if_neg requested, if_neg (by omega)]
      · rw [List.getElem?_eq_none (show bytes.length ≤ offset + index by omega),
          if_neg (by omega), ite_self]
  | reader inner =>
      unfold readAt view
      by_cases past : inner.contents.length - offset = 0
      · simp only [past, if_true]
        rw [window, List.drop_eq_nil_of_le (by omega), List.take_nil]
      · simp only [past, if_false]
        rw [pread_eq_window]
        apply List.ext_getElem?
        intro index
        rw [getElem?_window, getElem?_window]
        by_cases requested : index < count
        · by_cases present : index < inner.contents.length - offset
          · rw [if_pos (by omega), if_pos requested]
          · rw [if_neg (by omega), if_pos requested,
              List.getElem?_eq_none (by omega)]
        · rw [if_neg (by omega), if_neg requested]

theorem readExactAt_eq {ε : Type} (backing : Backing) (offset : Nat)
    {count : Nat} (allocatable : count ≤ isizeMax) :
    (backing.readExactAt offset count : Exec ε Bytes) =
      .ok (window backing.view offset count) := by
  rw [readExactAt, zeroed_eq_ok allocatable, Exec.ok_bind, Exec.pure_eq_ok,
    List.length_replicate, readAt_eq_window]

end Backing
end VhdxForensic

import VhdxForensic.Rust.Runs

/-!
# Laying out byte strings

A string of a given size with pieces placed at fixed positions and zeros
everywhere else. When the pieces are apart from one another, each of them is
read back from its place.
-/

namespace Rust

open Bytes

/-- The two runs share no position. -/
def Run.Apart (left right : Run) : Prop :=
  left.1 + left.2.length ≤ right.1 ∨ right.1 + right.2.length ≤ left.1

instance (left right : Run) : Decidable (left.Apart right) :=
  inferInstanceAs (Decidable (_ ∨ _))

theorem Run.Apart.symm {left right : Run} (apart : left.Apart right) :
    right.Apart left := Or.symm apart

theorem Run.Apart.not_covers {left right : Run} {pos : Nat}
    (apart : left.Apart right) (covers : left.Covers pos) :
    ¬ right.Covers pos := by
  unfold Run.Apart at apart
  unfold Run.Covers at covers ⊢
  omega

/-- A run that no later run overlaps settles the positions it covers. -/
theorem settle_of_mem {runs : List Run} {run : Run} {pos : Nat}
    (old : UInt8)
    (apart : runs.Pairwise Run.Apart)
    (member : run ∈ runs)
    (covers : run.Covers pos) :
    settle runs pos old = run.put pos old := by
  induction runs generalizing old with
  | nil => cases member
  | cons first rest inductionHypothesis =>
      obtain ⟨firstApart, restApart⟩ := List.pairwise_cons.mp apart
      rw [settle_cons]
      rcases List.mem_cons.mp member with rfl | inRest
      · exact settle_of_not_covers _ fun later laterMember =>
          (firstApart later laterMember).not_covers covers
      · have missed : ¬ first.Covers pos :=
          (firstApart run inRest).symm.not_covers covers
        rw [Run.put_of_not_covers old missed]
        exact inductionHypothesis old restApart inRest

/-- `size` bytes that hold the pieces, later ones on top, and zeros. -/
def layout (size : Nat) (pieces : List Run) : Bytes :=
  replayFrom 0 pieces (List.replicate size 0)

@[simp] theorem length_layout (size : Nat) (pieces : List Run) :
    (layout size pieces).length = size := by
  simp [layout]

section Layout

variable {size : Nat} {pieces : List Run}

theorem getElem?_layout (pos : Nat) :
    (layout size pieces)[pos]? =
      if pos < size then some (settle pieces pos 0) else none := by
  rw [layout, getElem?_replayFrom, List.getElem?_replicate, Nat.zero_add]
  split <;> rfl

/-- A window inside a piece shows the piece. -/
theorem window_layout_within {off inner count : Nat} {bytes : Bytes}
    (apart : pieces.Pairwise Run.Apart)
    (member : (off, bytes) ∈ pieces)
    (inside : off + bytes.length ≤ size)
    (within : inner + count ≤ bytes.length) :
    window (layout size pieces) (off + inner) count =
      window bytes inner count := by
  apply window_ext
  intro index indexLt
  have covers : Run.Covers (off, bytes) (off + inner + index) := by
    unfold Run.Covers
    dsimp only
    omega
  rw [getElem?_layout, if_pos (by omega), settle_of_mem 0 apart member covers,
    ← Run.put_of_covers 0 covers]
  congr 1
  dsimp only
  omega

/-- A piece is read back from its place. -/
theorem window_layout {off count : Nat} {bytes : Bytes}
    (apart : pieces.Pairwise Run.Apart)
    (member : (off, bytes) ∈ pieces)
    (lengthEq : bytes.length = count)
    (inside : off + count ≤ size) :
    window (layout size pieces) off count = bytes := by
  subst lengthEq
  have whole : window (layout size pieces) (off + 0) bytes.length =
      window bytes 0 bytes.length :=
    window_layout_within apart member inside (by omega)
  rwa [Nat.add_zero, window_zero_length] at whole

/-- Between the pieces there are zeros. -/
theorem window_layout_gap {off count : Nat}
    (inside : off + count ≤ size)
    (missed : ∀ piece ∈ pieces,
      piece.1 + piece.2.length ≤ off ∨ off + count ≤ piece.1) :
    window (layout size pieces) off count = List.replicate count 0 := by
  apply List.ext_getElem?
  intro index
  rw [getElem?_window, getElem?_layout, List.getElem?_replicate]
  by_cases indexLt : index < count
  · rw [if_pos indexLt, if_pos (by omega), if_pos indexLt,
      settle_of_not_covers 0 fun piece member covers => by
        have apart := missed piece member
        unfold Run.Covers at covers
        omega]
  · rw [if_neg indexLt, if_neg indexLt]

/-- An integer piece is read back from its place. -/
theorem le_layout {width value off : Nat}
    (apart : pieces.Pairwise Run.Apart)
    (member : (off, encodeLe width value) ∈ pieces)
    (inside : off + width ≤ size)
    (fits : value < 256 ^ width) :
    le width (layout size pieces) off = value := by
  have content := window_layout apart member (length_encodeLe _ _) inside
  rw [le_eq_decode (by simpa using inside), content, decodeLe_encodeLe fits]

/-- An integer in a gap is zero. -/
theorem le_layout_gap {width off : Nat}
    (inside : off + width ≤ size)
    (missed : ∀ piece ∈ pieces,
      piece.1 + piece.2.length ≤ off ∨ off + width ≤ piece.1) :
    le width (layout size pieces) off = 0 := by
  rw [le_eq_decode (by simpa using inside), window_layout_gap inside missed,
    decodeLe_replicate_zero]

end Layout

end Rust

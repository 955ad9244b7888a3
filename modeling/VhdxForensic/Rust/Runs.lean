import VhdxForensic.Rust.Bytes

/-!
# Replaying runs of bytes

A run is a byte string with the position of its first byte. Replaying a list
of runs over a buffer gives every position the byte of the last run that
covers it. The result does not depend on how the buffer is cut into windows.
-/

namespace Rust

/-- Bytes written from a start position on. -/
abbrev Run := Nat × Bytes

namespace Run

/-- The run writes position `pos`. -/
def Covers (run : Run) (pos : Nat) : Prop :=
  run.1 ≤ pos ∧ pos < run.1 + run.2.length

instance (run : Run) (pos : Nat) : Decidable (run.Covers pos) :=
  inferInstanceAs (Decidable (_ ∧ _))

/-- The byte at `pos` after the run, given the byte before it. -/
def put (run : Run) (pos : Nat) (old : UInt8) : UInt8 :=
  if run.Covers pos then run.2.getD (pos - run.1) old else old

/-- A covered position gets the byte of the run. -/
theorem put_of_covers {run : Run} {pos : Nat} (old : UInt8)
    (covers : run.Covers pos) :
    run.2[pos - run.1]? = some (run.put pos old) := by
  have within : pos - run.1 < run.2.length := by
    obtain ⟨starts, ends⟩ := covers
    omega
  rw [put, if_pos covers, List.getD_eq_getElem?_getD,
    List.getElem?_eq_getElem within, Option.getD_some]

/-- Other positions keep their bytes. -/
theorem put_of_not_covers {run : Run} {pos : Nat} (old : UInt8)
    (missed : ¬ run.Covers pos) : run.put pos old = old := if_neg missed

end Run

/-- The byte at `pos` after all runs, given the byte before them. -/
def settle (runs : List Run) (pos : Nat) (old : UInt8) : UInt8 :=
  runs.foldl (fun byte run => run.put pos byte) old

@[simp] theorem settle_nil (pos : Nat) (old : UInt8) :
    settle [] pos old = old := rfl

@[simp] theorem settle_cons (run : Run) (runs : List Run) (pos : Nat)
    (old : UInt8) :
    settle (run :: runs) pos old = settle runs pos (run.put pos old) := rfl

/-- Runs settle one list after the other. -/
theorem settle_append (first second : List Run) (pos : Nat) (old : UInt8) :
    settle (first ++ second) pos old =
      settle second pos (settle first pos old) :=
  List.foldl_append

/-- Runs that miss a position leave it alone. -/
theorem settle_of_not_covers {runs : List Run} {pos : Nat} (old : UInt8)
    (missed : ∀ run ∈ runs, ¬ run.Covers pos) :
    settle runs pos old = old := by
  induction runs with
  | nil => rfl
  | cons run runs inductionHypothesis =>
      rw [settle_cons, Run.put_of_not_covers old (missed run (by simp)),
        inductionHypothesis fun later member => missed later (by simp [member])]

/-- Dropping runs that miss a position does not change its byte. -/
theorem settle_filter {runs : List Run} {pos : Nat} (old : UInt8)
    (keep : Run → Bool)
    (missed : ∀ run ∈ runs, keep run = false → ¬ run.Covers pos) :
    settle (runs.filter keep) pos old = settle runs pos old := by
  induction runs generalizing old with
  | nil => rfl
  | cons run runs inductionHypothesis =>
      have later := fun old => inductionHypothesis old
        fun later member => missed later (by simp [member])
      cases kept : keep run with
      | true => rw [List.filter_cons_of_pos kept, settle_cons, settle_cons,
          later]
      | false =>
          rw [List.filter_cons_of_neg (by simp [kept]), settle_cons,
            Run.put_of_not_covers old (missed run (by simp) kept), later]

/-- Replay runs over a buffer whose first byte lies at `base`. -/
def replayFrom (base : Nat) (runs : List Run) (buf : Bytes) : Bytes :=
  buf.mapIdx fun index byte => settle runs (base + index) byte

@[simp] theorem length_replayFrom (base : Nat) (runs : List Run)
    (buf : Bytes) : (replayFrom base runs buf).length = buf.length := by
  simp [replayFrom]

/-- Replay settles every byte of the buffer by itself. -/
theorem getElem?_replayFrom (base : Nat) (runs : List Run) (buf : Bytes)
    (index : Nat) :
    (replayFrom base runs buf)[index]? =
      buf[index]?.map (settle runs (base + index)) := by
  simp [replayFrom]

@[simp] theorem replayFrom_nil (base : Nat) (buf : Bytes) :
    replayFrom base [] buf = buf := by
  apply List.ext_getElem?
  intro index
  rw [getElem?_replayFrom]
  cases buf[index]? <;> rfl

/-- Replay goes through one list after the other. -/
theorem replayFrom_append (base : Nat) (first second : List Run)
    (buf : Bytes) :
    replayFrom base (first ++ second) buf =
      replayFrom base second (replayFrom base first buf) := by
  apply List.ext_getElem?
  intro index
  rw [getElem?_replayFrom, getElem?_replayFrom, getElem?_replayFrom,
    Option.map_map]
  congr 1
  funext byte
  exact settle_append first second (base + index) byte

/-- Replaying over a window replays over the buffer behind it. -/
theorem window_replayFrom (base : Nat) (runs : List Run) (buf : Bytes)
    (off count : Nat) :
    Bytes.window (replayFrom base runs buf) off count =
      replayFrom (base + off) runs (Bytes.window buf off count) := by
  apply List.ext_getElem?
  intro index
  rw [Bytes.getElem?_window, getElem?_replayFrom, getElem?_replayFrom,
    Bytes.getElem?_window, Nat.add_assoc]
  split <;> rfl

/-- Run lists that settle every byte of the buffer alike replay alike. -/
theorem replayFrom_congr {base : Nat} {left right : List Run} {buf : Bytes}
    (same : ∀ index byte, buf[index]? = some byte →
      settle left (base + index) byte = settle right (base + index) byte) :
    replayFrom base left buf = replayFrom base right buf := by
  apply List.ext_getElem?
  intro index
  rw [getElem?_replayFrom, getElem?_replayFrom]
  cases present : buf[index]? with
  | none => rfl
  | some byte => simp [same index byte present]

/-- Runs that miss every position of the buffer leave it alone. -/
theorem replayFrom_of_not_covers {base : Nat} {runs : List Run} {buf : Bytes}
    (missed : ∀ run ∈ runs, ∀ index < buf.length,
      ¬ run.Covers (base + index)) :
    replayFrom base runs buf = buf := by
  apply List.ext_getElem?
  intro index
  rw [getElem?_replayFrom]
  cases present : buf[index]? with
  | none => rfl
  | some byte =>
      have indexLt := (List.getElem?_eq_some_iff.mp present).1
      rw [Option.map_some, settle_of_not_covers byte fun run member =>
        missed run member index indexLt]

/-- Overwriting a range replays one run. -/
theorem overwrite_eq_replayFrom {data source : Bytes} {off : Nat}
    (inside : off + source.length ≤ data.length) :
    Bytes.overwrite data off source = replayFrom 0 [(off, source)] data := by
  apply List.ext_getElem?
  intro index
  rw [Bytes.getElem?_overwrite inside, getElem?_replayFrom, Nat.zero_add]
  by_cases written : off ≤ index ∧ index < off + source.length
  · have covers : Run.Covers (off, source) index := written
    rw [if_pos written,
      List.getElem?_eq_getElem (show index < data.length by omega),
      Option.map_some, settle_cons, settle_nil]
    exact Run.put_of_covers _ covers
  · have missed : ¬ Run.Covers (off, source) index := written
    rw [if_neg written]
    cases data[index]? with
    | none => rfl
    | some byte =>
        rw [Option.map_some, settle_cons, settle_nil,
          Run.put_of_not_covers byte missed]

end Rust

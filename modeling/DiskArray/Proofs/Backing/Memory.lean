import DiskArray.Backing.Memory
import Mathlib.Algebra.Group.Nat.Defs
import Mathlib.Tactic.SplitIfs

/-!
# Disks in memory, by the numbers of their blocks

A block is found by its number, and a number past the disk is refused, as long as the end of the block is a 64-bit word
(`MemoryDisk.locate?_of_word`). Past that a program with checks stops in the call, and one without them takes the number
for a smaller one, which may be that of a block (`MemoryDisk.locate?_stops`, `MemoryDisk.locate?_wraps`). So numbers as
large as that are refused like all others exactly where the place of the block is counted without harm
(`Overflow.Counts`, `MemoryDisk.answers_by_number`).
-/

namespace DiskArray

/-- The place of a block is counted without harm: its end is a word, or what is left of the number in a word stands for
no block either. -/
def Overflow.Counts (mode : Overflow) (i : Nat) : Prop :=
  i + 1 < 2 ^ 56 ∨ mode = .wraps ∧ blockCount ≤ i % 2 ^ 56 ∧ i % 2 ^ 56 + 1 < 2 ^ 56

theorem Overflow.word?_of_lt {n : Nat} (h : n < 2 ^ 64) (mode : Overflow) : mode.word? n = some n := if_pos h

theorem Overflow.word?_stops {n : Nat} (h : 2 ^ 64 ≤ n) : Overflow.stops.word? n = none := if_neg (Nat.not_lt.2 h)

theorem Overflow.word?_wraps (n : Nat) : Overflow.wraps.word? n = some (n % 2 ^ 64) := by
  unfold word?
  split_ifs with h
  · exact congrArg some (Nat.mod_eq_of_lt h).symm
  · rfl

namespace MemoryDisk

variable {mode : Overflow} {m : MemoryDisk} {i j : Nat} {b : Block}

/-! ### The place of a block -/

/-- The block of a number, or the refusal of the number. -/
def found (i r : Nat) : Except DiskError (Fin blockCount) :=
  if h : r < blockCount then .ok ⟨r, h⟩ else .error (.outOfRange i)

theorem found_of_lt (h : i < blockCount) : found i i = .ok ⟨i, h⟩ := dif_pos h

theorem found_of_le {r : Nat} (h : blockCount ≤ r) : found i r = .error (.outOfRange i) := dif_neg (Nat.not_lt.2 h)

theorem blockBetween?_eq (i r : Nat) : blockBetween? i (r * 256) (r * 256 + 256) = some (found i r) := by
  unfold blockBetween? found
  by_cases hr : r < 4096
  · have hinside : r * 256 + 256 ≤ 1048576 := by omega
    have hstart : r * 256 < 1048576 := by omega
    rw [if_neg (Nat.not_lt.2 hinside), dif_pos hstart, dif_pos hr]
    simp only [Nat.mul_div_cancel r (show 0 < 256 by decide)]
  · have houtside : 1048576 < r * 256 + 256 := by omega
    rw [if_pos houtside, dif_neg hr]

/-- Where its end is a word, a block is found or lies outside the disk. -/
theorem locate?_of_word (h : i + 1 < 2 ^ 56) (mode : Overflow) : locate? mode i = some (found i i) := by
  have hstop : i * 256 + 256 < 2 ^ 64 := by omega
  have hstart : i * 256 < 2 ^ 64 := Nat.lt_of_le_of_lt (Nat.le_add_right _ _) hstop
  rw [← blockBetween?_eq]
  simp only [locate?, Overflow.word?_of_lt hstart, Overflow.word?_of_lt hstop, bind, Option.bind]

/-- A number whose place is no word stops a program with checks. -/
theorem locate?_stops (h : 2 ^ 56 ≤ i + 1) : locate? .stops i = none := by
  have hstop : 2 ^ 64 ≤ i * 256 + 256 := by omega
  by_cases hstart : i * 256 < 2 ^ 64
  · simp only [locate?, Overflow.word?_of_lt hstart, Overflow.word?_stops hstop, bind, Option.bind]
  · simp only [locate?, Overflow.word?_stops (Nat.le_of_not_lt hstart), bind, Option.bind]

/-- Without checks a number is taken for what is left of it in 56 bits; the last such number has no bytes. -/
theorem locate?_wraps (i : Nat) :
    locate? .wraps i = if i % 2 ^ 56 + 1 = 2 ^ 56 then none else some (found i (i % 2 ^ 56)) := by
  have hstart : i * 256 % 2 ^ 64 = i % 2 ^ 56 * 256 := by omega
  have hlt : i % 2 ^ 56 < 2 ^ 56 := Nat.mod_lt _ (by decide)
  simp only [locate?, Overflow.word?_wraps, bind, Option.bind]
  rw [hstart]
  generalize i % 2 ^ 56 = r at hlt
  by_cases hlast : r + 1 = 2 ^ 56
  · obtain rfl : r = 72057594037927935 := Nat.succ.inj hlast
    rw [if_pos hlast]
    rfl
  · have hstop : (r * 256 + 256) % 2 ^ 64 = r * 256 + 256 := Nat.mod_eq_of_lt (by omega)
    rw [if_neg hlast, hstop, blockBetween?_eq]

theorem locate?_of_lt (h : i < blockCount) (mode : Overflow) : locate? mode i = some (.ok ⟨i, h⟩) := by
  have hlt : i < 4096 := h
  rw [locate?_of_word (by omega), found_of_lt h]

theorem locate?_of_counts (h : mode.Counts i) : locate? mode i = some (found i i) := by
  rcases h with hword | ⟨rfl, hout, hword⟩
  · exact locate?_of_word hword mode
  · have hle : blockCount ≤ i := Nat.le_trans hout (Nat.mod_le _ _)
    rw [locate?_wraps, if_neg (Nat.ne_of_lt hword), found_of_le hout, found_of_le hle]

theorem counts_of_locate? (h : locate? mode i = some (.error (.outOfRange i))) : mode.Counts i := by
  by_cases hword : i + 1 < 2 ^ 56
  · exact Or.inl hword
  · cases mode with
    | stops =>
      rw [locate?_stops (Nat.le_of_not_lt hword)] at h
      cases h
    | wraps =>
      rw [locate?_wraps] at h
      split_ifs at h with hlast
      refine Or.inr ⟨rfl, Nat.le_of_not_lt fun hin => ?_, Nat.lt_of_le_of_ne (Nat.mod_lt i (by decide)) hlast⟩
      rw [found, dif_pos hin] at h
      cases h

/-! ### Calls -/

theorem readBlock?_of_lt (h : i < blockCount) (mode : Overflow) (m : MemoryDisk) :
    m.readBlock? mode i = some (.ok m.blocks[i]) := by
  rw [readBlock?, locate?_of_lt h]
  rfl

theorem writeBlock?_of_lt (h : i < blockCount) (mode : Overflow) (m : MemoryDisk) (b : Block) :
    m.writeBlock? mode i b = some (.ok (), ⟨m.blocks.set i b⟩) := by
  rw [writeBlock?, locate?_of_lt h]
  rfl

/-! ### The disk behind a device -/

theorem backing_of_lt (h : i < blockCount) (m : MemoryDisk) (b : Block) :
    Backing.readBlock m i = (.ok m.blocks[i], m) ∧
      Backing.writeBlock m i b = (.ok (), (⟨m.blocks.set i b⟩ : MemoryDisk)) := by
  simp only [Backing.readBlock, Backing.writeBlock, readBlock?_of_lt h, writeBlock?_of_lt h, Option.getD_some,
    and_self]

theorem backing_of_le (h : blockCount ≤ i) (m : MemoryDisk) (b : Block) :
    Backing.readBlock m i = (.error (.outOfRange i), m) ∧ Backing.writeBlock m i b = (.error (.outOfRange i), m) := by
  by_cases hword : i + 1 < 2 ^ 56
  · simp only [Backing.readBlock, Backing.writeBlock, readBlock?, writeBlock?, locate?_of_word hword, found_of_le h,
      Except.map, Option.map_some, Option.getD_some, and_self]
  · simp only [Backing.readBlock, Backing.writeBlock, readBlock?, writeBlock?,
      locate?_stops (Nat.le_of_not_lt hword), Option.map_none, Option.getD_none, and_self]

/-! ### Two blocks -/

/-- A write to one block and a read of another, or of the same, are answered as the numbers say. -/
structure Answers (mode : Overflow) (m : MemoryDisk) (i j : Nat) (b : Block) : Prop where
  written : i < blockCount → ∃ m', m.writeBlock? mode i b = some (.ok (), m') ∧
    ∀ buffer, m'.readInto? mode j buffer = if j = i then some (.ok (), b) else m.readInto? mode j buffer
  refused : blockCount ≤ i → m.writeBlock? mode i b = some (.error (.outOfRange i), m)
  unread : blockCount ≤ j → ∀ buffer, m.readInto? mode j buffer = some (.error (.outOfRange j), buffer)

/-- What is done about a number whose place is not counted without harm: the program stops, or the calls go to a block
that was not asked for. -/
def Strays (mode : Overflow) (m : MemoryDisk) (i : Nat) (b : Block) : Prop :=
  m.readBlock? mode i = none ∧ m.writeBlock? mode i b = none ∨
    mode = .wraps ∧ ∃ h : i % 2 ^ 56 < blockCount, i % 2 ^ 56 ≠ i ∧
      m.readBlock? mode i = some (.ok m.blocks[i % 2 ^ 56]) ∧
      m.writeBlock? mode i b = some (.ok (), ⟨m.blocks.set (i % 2 ^ 56) b⟩)

theorem readInto?_of_lt (h : i < blockCount) (mode : Overflow) (m : MemoryDisk) (buffer : Block) :
    m.readInto? mode i buffer = some (.ok (), m.blocks[i]) := by
  rw [readInto?, readBlock?_of_lt h]
  rfl

theorem readInto?_of_counts (h : mode.Counts i) (hout : blockCount ≤ i) (m : MemoryDisk) (buffer : Block) :
    m.readInto? mode i buffer = some (.error (.outOfRange i), buffer) := by
  rw [readInto?, readBlock?, locate?_of_counts h, found_of_le hout]
  rfl

theorem writeBlock?_of_counts (h : mode.Counts i) (hout : blockCount ≤ i) (m : MemoryDisk) (b : Block) :
    m.writeBlock? mode i b = some (.error (.outOfRange i), m) := by
  rw [writeBlock?, locate?_of_counts h, found_of_le hout]
  rfl

theorem answers_of_counts (hi : mode.Counts i) (hj : mode.Counts j) (m : MemoryDisk) (b : Block) :
    m.Answers mode i j b := by
  refine ⟨fun hlt => ⟨_, writeBlock?_of_lt hlt mode m b, ?_⟩, fun hout => writeBlock?_of_counts hi hout m b,
    fun hout => readInto?_of_counts hj hout m⟩
  intro buffer
  by_cases hji : j = i
  · subst hji
    rw [if_pos rfl, readInto?_of_lt hlt, Vector.getElem_set_self]
  · rw [if_neg hji]
    by_cases hin : j < blockCount
    · rw [readInto?_of_lt hin, readInto?_of_lt hin, Vector.getElem_set_ne hlt hin (Ne.symm hji)]
    · have hout := Nat.le_of_not_lt hin
      rw [readInto?_of_counts hj hout, readInto?_of_counts hj hout]

theorem counts_of_writeBlock? (h : m.writeBlock? mode i b = some (.error (.outOfRange i), m)) : mode.Counts i := by
  obtain ⟨place, hplace, hanswer⟩ := Option.map_eq_some_iff.1 h
  cases place with
  | ok k => cases hanswer
  | error e =>
    obtain rfl := Except.error.inj (congrArg Prod.fst hanswer)
    exact counts_of_locate? hplace

theorem counts_of_readBlock? (h : m.readBlock? mode i = some (.error (.outOfRange i))) : mode.Counts i := by
  obtain ⟨place, hplace, hanswer⟩ := Option.map_eq_some_iff.1 h
  cases place with
  | ok k => cases hanswer
  | error e =>
    obtain rfl := Except.error.inj hanswer
    exact counts_of_locate? hplace

theorem readBlock?_of_readInto? {buffer : Block} {e : DiskError}
    (h : m.readInto? mode i buffer = some (.error e, buffer)) : m.readBlock? mode i = some (.error e) := by
  obtain ⟨answer, hread, hanswer⟩ := Option.map_eq_some_iff.1 h
  cases answer with
  | ok data => cases hanswer
  | error e' =>
    obtain rfl := Except.error.inj (congrArg Prod.fst hanswer)
    exact hread

theorem Overflow.counts_of_lt (h : i < blockCount) : mode.Counts i := by
  have hlt : i < 4096 := h
  exact Or.inl (by omega)

theorem Answers.counts (h : m.Answers mode i j b) : mode.Counts i ∧ mode.Counts j := by
  refine ⟨?_, ?_⟩
  · rcases Nat.lt_or_ge i blockCount with hin | hout
    · exact Overflow.counts_of_lt hin
    · exact counts_of_writeBlock? (h.refused hout)
  · rcases Nat.lt_or_ge j blockCount with hin | hout
    · exact Overflow.counts_of_lt hin
    · exact counts_of_readBlock? (readBlock?_of_readInto? (h.unread hout Block.zero))

theorem strays_of_locate? (h : locate? mode i = none) (m : MemoryDisk) (b : Block) : m.Strays mode i b := by
  refine Or.inl ⟨?_, ?_⟩
  · rw [readBlock?, h, Option.map_none]
  · rw [writeBlock?, h, Option.map_none]

theorem strays_of_not_counts (h : ¬ mode.Counts i) (m : MemoryDisk) (b : Block) : m.Strays mode i b := by
  obtain ⟨hword, hwrapped⟩ := not_or.1 h
  cases mode with
  | stops => exact strays_of_locate? (locate?_stops (Nat.le_of_not_lt hword)) m b
  | wraps =>
    by_cases hlast : i % 2 ^ 56 + 1 = 2 ^ 56
    · exact strays_of_locate? (by rw [locate?_wraps, if_pos hlast]) m b
    · have hlt : i % 2 ^ 56 < 2 ^ 56 := Nat.mod_lt i (by decide)
      have hin : i % 2 ^ 56 < blockCount := Nat.lt_of_not_le fun hout =>
        hwrapped ⟨rfl, hout, Nat.lt_of_le_of_ne hlt hlast⟩
      have hplace : locate? .wraps i = some (.ok ⟨i % 2 ^ 56, hin⟩) := by
        rw [locate?_wraps, if_neg hlast, found, dif_pos hin]
      refine Or.inr ⟨rfl, hin, ?_, ?_, ?_⟩
      · have hin : i % 2 ^ 56 < 4096 := hin
        omega
      · rw [readBlock?, hplace]
        rfl
      · rw [writeBlock?, hplace]
        rfl

/-- A disk answers for two numbers as for the blocks that they stand for, and refuses those that stand for none, exactly
if the places of both are counted without harm. For every other number the program stops, or takes it for that of a
block. -/
theorem answers_by_number (mode : Overflow) (m : MemoryDisk) (i j : UInt64) (b : Block) :
    (m.Answers mode i.toNat j.toNat b ↔ mode.Counts i.toNat ∧ mode.Counts j.toNat) ∧
      (¬ mode.Counts i.toNat → m.Strays mode i.toNat b) := by
  refine ⟨⟨Answers.counts, ?_⟩, fun h => strays_of_not_counts h m b⟩
  rintro ⟨hi, hj⟩
  exact answers_of_counts hi hj m b

/-- The last number whose first byte has a 64-bit place gets no answer, with checks or without. Without them the next
number is that of the first block. -/
theorem no_answer_at_the_end :
    let last : UInt64 := 0xffffffffffffff
    let b : Block := .ofBytes [1]
    (∀ mode, blank.writeBlock? mode last.toNat b = none ∧ ¬ blank.Answers mode last.toNat 0 b) ∧
      ∃ m, blank.writeBlock? .wraps (last + 1).toNat b = some (.ok (), m) ∧ m.readBlock? .wraps 0 = some (.ok b) := by
  intro last b
  refine ⟨?_, ⟨blank.blocks.set 0 b⟩, ?_, ?_⟩
  · intro mode
    have hplace : locate? mode last.toNat = none := by
      cases mode with
      | stops => exact locate?_stops (by decide)
      | wraps => rw [locate?_wraps, if_pos (by decide)]
    refine ⟨by rw [writeBlock?, hplace, Option.map_none], fun h => ?_⟩
    rw [locate?_of_counts h.counts.1] at hplace
    cases hplace
  · have hnext : (last + 1).toNat % 2 ^ 56 = 0 := by decide
    have hplace : locate? .wraps (last + 1).toNat = some (.ok 0) := by
      rw [locate?_wraps, hnext, if_neg (by decide)]
      exact congrArg some (dif_pos (by decide))
    rw [writeBlock?, hplace]
    rfl
  · rw [readBlock?_of_lt (by decide), Vector.getElem_set_self]

end MemoryDisk

end DiskArray

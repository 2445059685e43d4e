import DiskArray.Proofs.Driver.InStep
import Mathlib.Algebra.Group.Nat.Defs
import Mathlib.Data.List.Basic

/-!
# The chunks of a range

The chunks cut a range of bytes into pieces without a gap, each in a block of its own, and the blocks follow each other
(`Partition`). The loops of a transfer go from chunk to chunk (`Outcome.Visits`). Written out with 32-bit words, one
round of a loop forms sums and differences, none of which leaves the range of a word within the array (`round?_eq`). So
the rounds come to an end, and their chunks are these (`exists_rounds`, `chunks_partition`).
-/

namespace DiskArray

/-! ### Addresses -/

theorem Location.address_eq (address : Nat) :
    65536 * (Location.ofAddress address).disk + 256 * (Location.ofAddress address).block +
        (Location.ofAddress address).offset = address ∧
      (Location.ofAddress address).block < 256 ∧ (Location.ofAddress address).offset < 256 := by
  show 65536 * (address / 65536) + 256 * (address % 65536 / 256) + address % 256 = address ∧
    address % 65536 / 256 < 256 ∧ address % 256 < 256
  omega

/-! ### The cut -/

/-- Chunks that cut a range at the boundaries of the blocks. -/
structure Partition (start length : Nat) (cs : List Chunk) : Prop where
  count : cs.length = (start % 256 + length + 255) / 256
  inside : ∀ c ∈ cs, 0 < c.size ∧ c.address % 256 + c.size ≤ 256
  first : ∀ c ∈ cs.head?, c.address = start
  next : cs.IsChain fun c c' => c'.address = c.address + c.size
  last : ∀ c ∈ cs.getLast?, c.address + c.size = start + length
  bytes : cs.flatMap (fun c => List.range' c.address c.size) = List.range' start length
  aligned : ∀ c ∈ cs.tail, c.address % 256 = 0
  blocks : cs.map (fun c => c.location.blockId.flat) = List.range' (start / 256) cs.length

namespace Partition

variable {start length size rest : Nat} {cs : List Chunk}

theorem single (hpos : 0 < size) (hfit : start % 256 + size ≤ 256) : Partition start size [⟨start, size⟩] where
  count := by
    rw [List.length_singleton]
    omega
  inside c hc := by
    obtain rfl := List.mem_singleton.1 hc
    exact ⟨hpos, hfit⟩
  first := by
    rintro c ⟨⟩
    rfl
  next := List.IsChain.singleton _
  last := by
    rintro c ⟨⟩
    rfl
  bytes := by rw [List.flatMap_singleton]
  aligned := nofun
  blocks := by
    rw [List.map_singleton, Chunk.location, Location.flat_blockId_ofAddress]
    rfl

theorem cons (hpos : 0 < size) (hfit : start % 256 + size ≤ 256) (hmod : (start + size) % 256 = 0) (hrest : 0 < rest)
    (h : Partition (start + size) rest cs) : Partition start (size + rest) (⟨start, size⟩ :: cs) := by
  have hcount := h.count
  obtain ⟨c, cs, rfl⟩ : ∃ c later, cs = c :: later := List.exists_cons_of_length_pos (by omega)
  have haddress : c.address = start + size := h.first c rfl
  refine ⟨?_, ?_, ?_, ?_, ?_, ?_, ?_, ?_⟩
  · rw [List.length_cons, hcount]
    omega
  · intro c' hc'
    rcases List.mem_cons.1 hc' with rfl | hc'
    · exact ⟨hpos, hfit⟩
    · exact h.inside c' hc'
  · rintro c' ⟨⟩
    rfl
  · exact List.isChain_cons_cons.2 ⟨haddress, h.next⟩
  · intro c' hc'
    rw [List.getLast?_cons_cons] at hc'
    rw [h.last c' hc', Nat.add_assoc]
  · rw [List.flatMap_cons, h.bytes, List.range'_append_1]
  · intro c' hc'
    rcases List.mem_cons.1 hc' with rfl | hc'
    · rw [haddress, hmod]
    · exact h.aligned c' hc'
  · have hblock : (start + size) / 256 = start / 256 + 1 := by omega
    rw [List.map_cons, h.blocks, hblock, Chunk.location, Location.flat_blockId_ofAddress, ← List.range'_succ]
    rfl

theorem flat_lt (h : Partition start length cs) (hrange : start + length ≤ totalSize) {c : Chunk} (hc : c ∈ cs) :
    c.location.blockId.flat < blockCount := by
  have hmem : c.address ∈ List.range' start length := by
    rw [← h.bytes, List.mem_flatMap]
    exact ⟨c, hc, List.mem_range'_1.2 ⟨Nat.le_refl _, Nat.lt_add_of_pos_right (h.inside c hc).1⟩⟩
  have hlt : c.address < 1048576 := Nat.lt_of_lt_of_le (List.mem_range'_1.1 hmem).2 hrange
  rw [Chunk.location, Location.flat_blockId_ofAddress]
  show c.address / 256 < 4096
  omega

end Partition

theorem partition_chunks (start : Nat) {length : Nat} (h : 0 < length) :
    Partition start length (chunks start length) := by
  induction start, length using chunks_induction with
  | done start => exact absurd h (Nat.lt_irrefl 0)
  | chunk start size rest hpos hfit hnext hchunks ih =>
    rw [hchunks]
    rcases Nat.eq_zero_or_pos rest with rfl | hrest
    · rw [chunks_zero]
      exact .single hpos hfit
    · exact (ih hrest).cons hpos hfit (hnext.resolve_left (Nat.ne_of_gt hrest)) hrest

/-! ### Rounds in 32 bits -/

/-- The sum of two words, if it is a word. -/
def sum? (a b : UInt32) : Option UInt32 := if a.toNat + b.toNat < 2 ^ 32 then some (a + b) else none

/-- The difference of two words, if it is a word. -/
def difference? (a b : UInt32) : Option UInt32 := if b ≤ a then some (a - b) else none

theorem sum?_eq_some (a b : UInt32) (h : a.toNat + b.toNat < 2 ^ 32) :
    ∃ c, sum? a b = some c ∧ c.toNat = a.toNat + b.toNat :=
  ⟨a + b, if_pos h, by rw [UInt32.toNat_add, Nat.mod_eq_of_lt h]⟩

theorem difference?_eq_some (a b : UInt32) (h : b.toNat ≤ a.toNat) :
    ∃ c, difference? a b = some c ∧ c.toNat = a.toNat - b.toNat :=
  ⟨a - b, if_pos (UInt32.le_iff_toNat_le.2 h), UInt32.toNat_sub_of_le a b (UInt32.le_iff_toNat_le.2 h)⟩

/-- One round of the loop of a transfer. -/
structure Round where
  /-- The bytes of the rounds before. -/
  done : UInt32
  address : UInt32
  size : UInt32
  /-- The bytes after this round. -/
  next : UInt32

/-- The chunk of the round. -/
def Round.chunk (r : Round) : Chunk := ⟨r.address.toNat, r.size.toNat⟩

/-- The round after some bytes, if every sum and difference in it is a word. -/
def round? (start length done : UInt32) : Option Round := do
  let address ← sum? start done
  let offset := address % 256
  let left ← difference? length done
  let room ← difference? 256 offset
  let size := min left room
  let _ ← sum? offset size
  let next ← sum? done size
  return { done, address, size, next }

/-- The rounds from some bytes on, until all bytes are done. -/
inductive Rounds (start length : UInt32) : UInt32 → List Round → Prop where
  | stop {done : UInt32} (h : ¬ done < length) : Rounds start length done []
  | round {done : UInt32} {r : Round} {later : List Round} (h : done < length)
      (hr : round? start length done = some r) (hlater : Rounds start length r.next later) :
      Rounds start length done (r :: later)

section Rounds
variable {start length done : UInt32} {rounds rounds' : List Round} {size rest : Nat}

theorem Rounds.unique (h : Rounds start length done rounds) (h' : Rounds start length done rounds') :
    rounds = rounds' := by
  induction h generalizing rounds' with
  | stop hstop =>
    cases h' with
    | stop => rfl
    | round hgo => exact absurd hgo hstop
  | round hgo hr _ ih =>
    cases h' with
    | stop hstop => exact absurd hgo hstop
    | round _ hr' hlater' =>
      obtain rfl := Option.some.inj (hr.symm.trans hr')
      rw [ih hlater']

/-- Where a chunk is left in a range of the array, the next round is about this chunk. -/
theorem round?_eq (hrange : start.toNat + length.toNat ≤ 2 ^ 20) (hdone : done.toNat + (size + rest) = length.toNat)
    (hpos : 0 < size) (hfit : (start.toNat + done.toNat) % 256 + size ≤ 256)
    (hnext : rest = 0 ∨ (start.toNat + done.toNat + size) % 256 = 0) :
    ∃ r, round? start length done = some r ∧ r.done = done ∧ r.chunk = ⟨start.toNat + done.toNat, size⟩ ∧
      r.next.toNat = done.toNat + size := by
  obtain ⟨address, haddress, haddress'⟩ := sum?_eq_some start done (by omega)
  have hoffset : (address % 256).toNat = (start.toNat + done.toNat) % 256 := by rw [UInt32.toNat_mod, haddress']; rfl
  obtain ⟨left, hleft, hleft'⟩ := difference?_eq_some length done (by omega)
  obtain ⟨room, hroom, hroom'⟩ := difference?_eq_some 256 (address % 256) (by
    show (address % 256).toNat ≤ 256
    omega)
  have hroom'' : room.toNat = 256 - (start.toNat + done.toNat) % 256 := by rw [hroom', hoffset]; rfl
  have hsize : (min left room).toNat = size := by
    rw [UInt32.toNat_min]
    omega
  obtain ⟨stop, hstop, -⟩ := sum?_eq_some (address % 256) (min left room) (by omega)
  obtain ⟨next, hnext', hnext''⟩ := sum?_eq_some done (min left room) (by omega)
  refine ⟨⟨done, address, min left room, next⟩, ?_, rfl, ?_, ?_⟩
  · simp only [round?, haddress, hleft, hroom, hstop, hnext', bind, Option.bind, pure]
  · rw [Round.chunk, haddress', hsize]
  · rw [hnext'', hsize]

/-- Within the array the loop comes to an end, with every sum and difference on the way a word. It goes on in each
round, and its rounds are about the chunks. -/
theorem exists_rounds (hrange : start.toNat + length.toNat ≤ 2 ^ 20) (done : UInt32)
    (hdone : done.toNat ≤ length.toNat) :
    ∃ rounds, Rounds start length done rounds ∧
      rounds.map Round.chunk = chunks (start.toNat + done.toNat) (length.toNat - done.toNat) ∧
      (∀ r ∈ rounds, r.chunk.address = start.toNat + r.done.toNat ∧ done ≤ r.done ∧ r.done < r.next) ∧
      rounds.Pairwise fun r r' => r.done < r'.done := by
  obtain ⟨a, ha⟩ : ∃ a, a = start.toNat + done.toNat := ⟨_, rfl⟩
  obtain ⟨n, hn⟩ : ∃ n, n = length.toNat - done.toNat := ⟨_, rfl⟩
  rw [← ha, ← hn]
  induction a, n using chunks_induction generalizing done with
  | done a =>
    have hstop : ¬ done < length := UInt32.not_lt.2 (UInt32.le_iff_toNat_le.2 (by omega))
    exact ⟨[], .stop hstop, (chunks_zero a).symm, nofun, .nil⟩
  | chunk a size rest hpos hfit hnext hchunks ih =>
    subst ha
    obtain ⟨r, hr, rfl, hchunk, hr'⟩ := round?_eq hrange (by omega) hpos hfit hnext
    obtain ⟨later, hlater, hmap, hall, hpairs⟩ := ih r.next (by omega) (by omega) (by omega)
    have hgo : r.done < length := UInt32.lt_iff_toNat_lt.2 (by omega)
    have hgoes : r.done < r.next := UInt32.lt_iff_toNat_lt.2 (by omega)
    refine ⟨r :: later, .round hgo hr hlater, ?_, ?_, ?_⟩
    · rw [List.map_cons, hmap, hchunks, hchunk]
    · intro r' hr'
      rcases List.mem_cons.1 hr' with rfl | hr'
      · exact ⟨by rw [hchunk], UInt32.le_refl _, hgoes⟩
      · obtain ⟨haddress, hle, hlt⟩ := hall r' hr'
        exact ⟨haddress, UInt32.le_trans (UInt32.le_of_lt hgoes) hle, hlt⟩
    · exact .cons (fun r' hr' => UInt32.lt_of_lt_of_le hgoes (hall r' hr').2.1) hpairs

end Rounds

/-! ### The log of a loop -/

/-- The record tells of a chunk: the driver traces nothing else. -/
def Log.Record.IsChunk (r : Log.Record) : Prop := r.level = .trace ∧ r.target = "jbod_mdadm::storage::driver"

instance : DecidablePred Log.Record.IsChunk := fun r =>
  inferInstanceAs (Decidable (r.level = .trace ∧ r.target = "jbod_mdadm::storage::driver"))

namespace Outcome

variable {σ ε α γ : Type} {o : Outcome σ ε α} {records : List Log.Record}

/-- The step tells of these chunks and no others if it succeeds, and of the first ones of them anyway. -/
def Visits (o : Outcome σ ε α) (records : List Log.Record) : Prop :=
  o.log.filter Log.Record.IsChunk <+: records ∧ ((∃ a, o.result = .ok a) → o.log.filter Log.Record.IsChunk = records)

theorem visits_nil_iff : o.Visits [] ↔ ∀ r ∈ o.log, ¬ r.IsChunk := by
  rw [Visits, List.prefix_nil, and_iff_left_of_imp fun h _ => h, List.filter_eq_nil_iff]
  simp only [decide_eq_true_eq]

theorem visits_done (s : σ) (a : α) : (done s a : Outcome σ ε α).Visits [] := visits_nil_iff.2 nofun

theorem Visits.andThen {next : σ → α → Outcome σ ε γ} {later : List Log.Record} (ho : o.Visits records)
    (hnext : ∀ s a, (next s a).Visits later) : (o.andThen next).Visits (records ++ later) := by
  obtain ⟨result, s, log⟩ := o
  cases result with
  | error e => exact ⟨ho.1.trans (List.prefix_append _ _), nofun⟩
  | ok a =>
    have hfilter : (logged log (next s a)).log.filter Log.Record.IsChunk =
        records ++ (next s a).log.filter Log.Record.IsChunk := by
      rw [← ho.2 ⟨a, rfl⟩, logged, List.filter_append]
    rw [andThen_ok, Visits, hfilter]
    exact ⟨(List.prefix_append_right_inj _).2 (hnext s a).1, fun hok => congrArg _ ((hnext s a).2 hok)⟩

theorem Visits.logged {r : Log.Record} (ho : o.Visits records) (hr : r.IsChunk) :
    (Outcome.logged [r] o).Visits (r :: records) := by
  have hfilter : (Outcome.logged [r] o).log.filter Log.Record.IsChunk = r :: o.log.filter Log.Record.IsChunk :=
    List.filter_cons_of_pos (decide_eq_true hr)
  rw [Visits, hfilter]
  exact ⟨List.cons_prefix_cons.2 ⟨rfl, ho.1⟩, fun hok => congrArg _ (ho.2 hok)⟩

end Outcome

namespace Device

variable {β : Type}

/-- The device records errors, and what helps to find them. -/
def Untraced (reply : Reply (Device β)) : Prop := ∀ r ∈ reply.log, r.level ≠ .trace

theorem untraced_accept (d : Device β) (buffer : Option Block) : Untraced (d.accept buffer) :=
  fun _ h => absurd h List.not_mem_nil

theorem untraced_refuse (d : Device β) (buffer : Option Block) (e : DeviceError) : Untraced (d.refuse buffer e) :=
  fun _ h => absurd h List.not_mem_nil

theorem untraced_failed (d : Device β) (buffer : Option Block) (e : DeviceError) (call purpose : String) (id : Nat)
    (source : DiskError) : Untraced (d.refuse buffer e [backingRecord call id purpose source]) := by
  intro r hr
  obtain rfl := List.mem_singleton.1 hr
  exact nofun

variable [Backing β]

theorem untraced_readAtCursor (d : Device β) (buffer : Option Block) : Untraced (d.readAtCursor buffer) := by
  unfold readAtCursor
  split
  · exact untraced_refuse _ _ _
  · exact untraced_refuse _ _ _
  · split
    · exact untraced_accept _ _
    · exact untraced_failed _ _ _ _ _ _ _

theorem untraced_writeAtCursor (d : Device β) (buffer : Option Block) : Untraced (d.writeAtCursor buffer) := by
  unfold writeAtCursor
  split
  · exact untraced_refuse _ _ _
  · exact untraced_refuse _ _ _
  · split
    · exact untraced_accept _ _
    · exact untraced_failed _ _ _ _ _ _ _

theorem untraced_signAtCursor (d : Device β) (buffer : Option Block) : Untraced (d.signAtCursor buffer) := by
  unfold signAtCursor
  split
  · exact untraced_refuse _ _ _
  · split
    · exact untraced_accept _ _
    · exact untraced_failed _ _ _ _ _ _ _

theorem untraced_execute (d : Device β) (op : Operation) (buffer : Option Block) : Untraced (d.execute op buffer) := by
  unfold execute
  split
  · exact untraced_accept _ _
  · exact untraced_refuse _ _ _
  · exact untraced_accept _ _
  · exact untraced_refuse _ _ _
  · exact untraced_refuse _ _ _
  · exact untraced_accept _ _
  · exact untraced_accept _ _
  · exact untraced_readAtCursor d buffer
  · exact untraced_writeAtCursor d buffer
  · exact untraced_signAtCursor d buffer
  · split
    · exact untraced_refuse _ _ _
    · exact untraced_accept _ _
  · split
    · exact untraced_accept _ _
    · exact untraced_refuse _ _ _
  · exact untraced_refuse _ _ _

theorem untraced_operate (d : Device β) (code : UInt32) (buffer : Option Block) : Untraced (d.operate code buffer) := by
  unfold operate
  cases Operation.decode code with
  | error e => exact untraced_refuse _ _ _
  | ok op =>
    have hexecute := untraced_execute { d with tally := d.tally.bump op.command } op buffer
    dsimp only
    split
    · exact hexecute
    · intro r hr
      rcases List.mem_append.1 hr with hr | hr
      · exact hexecute r hr
      · obtain rfl := List.mem_singleton.1 hr
        exact nofun

end Device

namespace Driver

theorem target_of_evictionLog {c : Cache} {id : BlockId} {r : Log.Record} (h : r ∈ c.evictionLog id) :
    r.target = "jbod_mdadm::cache" := by
  unfold Cache.evictionLog at h
  split at h
  · obtain rfl := List.mem_singleton.1 h
    rfl
  · cases h

theorem visits_remember {δ : Type} (d : Driver δ) (id : BlockId) (block : Block) : (d.remember id block).Visits [] := by
  unfold remember
  split
  · exact Outcome.visits_done _ _
  · split
    · rw [Outcome.visits_nil_iff]
      intro r hr hchunk
      rcases List.mem_append.1 hr with hr | hr
      · exact absurd ((target_of_evictionLog hr).symm.trans hchunk.2) (by decide)
      · cases hr
    · exact Outcome.visits_done _ _

variable {β : Type} [Backing β]

theorem isChunk_chunkRecord (verb : String) (c : Chunk) : (chunkRecord verb c).IsChunk := ⟨rfl, rfl⟩

theorem visits_issue (d : Driver (Device β)) (op : Operation) (buffer : Option Block) (done : Nat) :
    (d.issue op buffer done).Visits [] := by
  have hreply := d.device.untraced_operate op.encode buffer
  rw [Outcome.visits_nil_iff]
  unfold issue
  dsimp only
  split
  · intro r hr hchunk
    exact hreply r hr hchunk.1
  · intro r hr hchunk
    rcases List.mem_append.1 hr with hr | hr
    · exact hreply r hr hchunk.1
    · obtain rfl := List.mem_singleton.1 hr
      exact absurd hchunk.1 nofun

theorem visits_seek (d : Driver (Device β)) (id : BlockId) (done : Nat) : (d.seek id done).Visits [] :=
  (d.visits_issue _ _ _).andThen fun d _ => (d.visits_issue _ _ _).andThen fun d _ => Outcome.visits_done d _

theorem visits_fetch (d : Driver (Device β)) (id : BlockId) (done : Nat) : (d.fetch id done).Visits [] :=
  (d.visits_seek id done).andThen fun d _ => (d.visits_issue _ _ _).andThen fun d _ =>
    (d.visits_remember _ _).andThen fun d _ => Outcome.visits_done d _

theorem visits_load (d : Driver (Device β)) (id : BlockId) (done : Nat) : (d.load id done).Visits [] := by
  unfold load
  split
  · exact Outcome.visits_done _ _
  · exact visits_fetch _ id done
  · exact d.visits_fetch id done

theorem visits_store (d : Driver (Device β)) (id : BlockId) (block : Block) (done : Nat) :
    (d.store id block done).Visits [] :=
  (d.visits_seek id done).andThen fun d _ => (d.visits_issue _ _ _).andThen fun d _ => d.visits_remember _ _

theorem visits_prepare (d : Driver (Device β)) (c : Chunk) (data : List UInt8) (done : Nat) :
    (d.prepare c data done).Visits [] := by
  unfold prepare
  dsimp only
  split
  · exact Outcome.visits_done _ _
  · exact (d.visits_load _ _).andThen fun d _ => Outcome.visits_done d _

theorem readChunks_cons (d : Driver (Device β)) (done : Nat) (c : Chunk) (rest : List Chunk) :
    (d.readChunks done (c :: rest)).2 =
      ((d.load c.location.blockId done).andThen fun d _ => (d.readChunks (done + c.size) rest).2).logged
        [chunkRecord "read" c] := by
  simp only [readChunks]
  rcases d.load c.location.blockId done with ⟨result, d', log⟩
  cases result with
  | error e => rfl
  | ok block => simp only [Outcome.logged, Outcome.andThen_ok, List.append_assoc]

theorem visits_readChunks (d : Driver (Device β)) (done : Nat) (cs : List Chunk) :
    (d.readChunks done cs).2.Visits (cs.map (chunkRecord "read")) := by
  induction cs generalizing d done with
  | nil => exact Outcome.visits_done _ _
  | cons c rest ih =>
    rw [readChunks_cons]
    exact ((d.visits_load _ _).andThen fun d _ => ih d _).logged (isChunk_chunkRecord _ _)

theorem visits_writeChunks (d : Driver (Device β)) (done : Nat) (data : List UInt8) (cs : List Chunk) :
    (d.writeChunks done data cs).Visits (cs.map (chunkRecord "write")) := by
  induction cs generalizing d done data with
  | nil => exact Outcome.visits_done _ _
  | cons c rest ih =>
    refine Outcome.Visits.logged ?_ (isChunk_chunkRecord _ _)
    exact (d.visits_prepare _ _ _).andThen fun d _ => (d.visits_store _ _ _).andThen fun d _ => ih d _ _

theorem Steady.result_eq {d : Driver (Device β)} {o : Outcome (Driver (Device β)) DriverError Unit} (ho : d.Steady o)
    (hnever : Backing.NeverFails d.device.backing) : o.result = .ok () := by
  unfold Steady Outcome.Ensures at ho
  cases hr : o.result with
  | ok _ => rfl
  | error e =>
    rw [hr] at ho
    exact absurd hnever ho.2.2

theorem visits_read (d : Driver (Device β)) (start length : Nat) (buffer : Option (List UInt8)) :
    (d.read start length buffer).toOutcome.Visits ((chunks start length).map (chunkRecord "read")) := by
  unfold read
  split
  · exact ⟨List.nil_prefix, nofun⟩
  · have hread := (d.visits_readChunks 0 (chunks start length)).andThen fun d _ =>
      Outcome.visits_done d length
    rwa [List.append_nil] at hread

theorem visits_write (d : Driver (Device β)) (start length : Nat) (data : Option (List UInt8)) :
    (d.write start length data).Visits ((chunks start length).map (chunkRecord "write")) := by
  unfold write
  split
  · exact ⟨List.nil_prefix, nofun⟩
  · have hwrite := (d.visits_writeChunks 0 (data.getD []) (chunks start length)).andThen fun d _ =>
      Outcome.visits_done d length
    rwa [List.append_nil] at hwrite

end Driver

/-- The chunks of a range are as many as the blocks that it touches, and cut it without a gap; the blocks follow each
other, across the disks as well. The loops of a read and of a write go through these chunks, to the end unless a call
fails. Written out with 32-bit words, the loop of a range of the array goes one way and comes to an end, through these
chunks and with every sum and difference a word. An address is its disk, block and offset. -/
theorem chunks_partition :
    (∀ start length : Nat, 0 < length → start + length ≤ 2 ^ 20 →
      Partition start length (chunks start length) ∧ ∀ c ∈ chunks start length, c.location.blockId.flat < 4096) ∧
    (∀ (β : Type) [Backing β] (d : Driver (Device β)) (start length done : Nat) (data : List UInt8)
        (buffer : Option (List UInt8)),
      let visited (verb : String) := (chunks start length).map (Driver.chunkRecord verb)
      (d.readChunks done (chunks start length)).2.Visits (visited "read") ∧
        (d.read start length buffer).toOutcome.Visits (visited "read") ∧
        (d.writeChunks done data (chunks start length)).Visits (visited "write") ∧
        (d.write start length buffer).Visits (visited "write") ∧
        (d.device.mounted = true → Backing.NeverFails d.device.backing →
          (d.readChunks done (chunks start length)).2.result = .ok () ∧
          (d.writeChunks done data (chunks start length)).result = .ok ())) ∧
    (∀ start length : UInt32, start.toNat + length.toNat ≤ 2 ^ 20 →
      ∃ rounds, Rounds start length 0 rounds ∧ (∀ rounds', Rounds start length 0 rounds' → rounds' = rounds) ∧
        rounds.map Round.chunk = chunks start.toNat length.toNat ∧
        (∀ r ∈ rounds, r.chunk.address = start.toNat + r.done.toNat ∧ r.done < r.next) ∧
        rounds.Pairwise fun r r' => r.done < r'.done) ∧
    ∀ address : UInt32,
      let place := Location.ofAddress address.toNat
      65536 * place.disk + 256 * place.block + place.offset = address.toNat ∧ place.block < 256 ∧
        place.offset < 256 := by
  refine ⟨?_, ?_, ?_, fun address => Location.address_eq address.toNat⟩
  · intro start length hpos hrange
    have hpartition := partition_chunks start hpos
    exact ⟨hpartition, fun c hc => hpartition.flat_lt hrange hc⟩
  · intro β _ d start length done data buffer visited
    exact ⟨d.visits_readChunks _ _, d.visits_read _ _ _, d.visits_writeChunks _ _ _, d.visits_write _ _ _,
      fun hm hnever => ⟨(Driver.steady_readChunks (d := d) hm _ _).result_eq hnever,
        (Driver.steady_writeChunks (d := d) hm _ _ _).result_eq hnever⟩⟩
  · intro start length hrange
    obtain ⟨rounds, hrounds, hmap, hall, hpairs⟩ := exists_rounds hrange 0 (Nat.zero_le _)
    exact ⟨rounds, hrounds, fun _ h' => h'.unique hrounds, hmap, fun r hr => ⟨(hall r hr).1, (hall r hr).2.2⟩, hpairs⟩

/-- The last byte of a disk and the first one of the next disk are two chunks. -/
theorem chunks_partition_across_disks :
    let d : Driver (Device MemoryDisk) :=
      { device := { backing := .blank, mounted := true }, cache := .unused .mostRecent, mounted := true }
    let records := (chunks 65535 2).map (Driver.chunkRecord "read")
    records.length = 2 ∧ (chunks 65535 2).map (fun c => c.location.blockId.flat) = [255, 256] ∧
      (d.read 65535 2 (some [7, 8])).log.filter Log.Record.IsChunk = records ∧
      ∃ rounds, Rounds 65535 2 0 rounds ∧ rounds.map Round.chunk = chunks 65535 2 := by
  intro d records
  obtain ⟨hpartition, hvisits, hrounds, -⟩ := chunks_partition
  obtain ⟨hcut, -⟩ := hpartition 65535 2 (by decide) (by decide)
  have hcount : (chunks 65535 2).length = 2 := hcut.count
  have hblocks := hcut.blocks
  rw [hcount] at hblocks
  have hread : (d.read 65535 2 (some [7, 8])).result = .ok 2 := by decide +kernel
  obtain ⟨-, hlog, -⟩ := hvisits _ d 65535 2 0 [] (some [7, 8])
  obtain ⟨rounds, hloop, -, hchunks, -⟩ := hrounds 65535 2 (by decide)
  refine ⟨?_, hblocks, hlog.2 ⟨2, hread⟩, rounds, hloop, hchunks⟩
  rw [List.length_map, hcount]

end DiskArray

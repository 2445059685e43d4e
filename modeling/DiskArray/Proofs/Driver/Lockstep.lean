import DiskArray.Proofs.Driver.Reliable
import DiskArray.Proofs.Driver.Run
import DiskArray.Proofs.Driver.Transfer

/-!
# Two drivers in lockstep

Two drivers over equal reliable disks that differ in their caches. Whatever is asked of both, they give the same
answers and keep equal disks and equal signatures (`Agree.serve`): every step of one is taken by the other as well.
A relation of their costs holds throughout if it is kept whenever both load or both store a block
(`Costs.Stable`).
-/

namespace DiskArray

/-- The relation is kept when a block is loaded, or stored, on both sides. -/
structure Costs.Stable (R : Costs → Costs → Prop) : Prop where
  load {c c' : Costs} (id : BlockId) (block : Block) : R c c' → R (c.load id block) (c'.load id block)
  store {c c' : Costs} (id : BlockId) (block : Block) : R c c' → R (c.store id block) (c'.store id block)

namespace Driver

variable {β : Type} [Backing β] [BlockView β] [ReliableBacking β] {R : Costs → Costs → Prop}
  {d d' e e' : Driver (Device β)} {id : BlockId}

/-- Both drivers are ready, differ at most in their caches, cursors and counts, and have related costs. -/
structure Agree (R : Costs → Costs → Prop) (d d' : Driver (Device β)) : Prop where
  left : d.Ready
  right : d'.Ready
  backing : d.device.backing = d'.device.backing
  signatures : d.device.signatures = d'.device.signatures
  mounted : d.mounted = d'.mounted
  writable : d.writable = d'.writable
  costs : R d.costs d'.costs

/-- The drivers agree, and their arrays are mounted. -/
def Working (R : Costs → Costs → Prop) (d d' : Driver (Device β)) : Prop := d.Agree R d' ∧ d.mounted

theorem Agree.working (h : d.Agree R d') (hm : d.mounted) : d.Working R d' := ⟨h, hm⟩

theorem Working.mounted' (h : d.Working R d') : d'.mounted := h.1.mounted ▸ h.2

theorem Working.becomes {backing backing' : β} {c c' : Costs} (h : d.Working R d') (hd : d.Becomes backing c e)
    (hd' : d'.Becomes backing' c' e') (hbacking : backing = backing') (hc : R c c') : e.Working R e' := by
  refine ⟨⟨hd.ready, hd'.ready, ?_, ?_, ?_, ?_, ?_⟩, hd.mounted ▸ h.2⟩
  · rw [hd.backing, hd'.backing, hbacking]
  · rw [hd.signatures, hd'.signatures, h.1.signatures]
  · rw [hd.mounted, hd'.mounted, h.1.mounted]
  · rw [hd.writable, hd'.writable, h.1.writable]
  · rw [hd.costs, hd'.costs]
    exact hc

/-! ### Blocks -/

theorem Working.load (hR : Costs.Stable R) (h : d.Working R d') (hid : id.InArray) (done : Nat) :
    (d.load id done).Same (Working R) (d'.load id done) := by
  obtain ⟨hok, hd⟩ := load_becomes h.1.left h.2 hid done
  obtain ⟨hok', hd'⟩ := load_becomes h.1.right h.mounted' hid done
  rw [← h.1.backing] at hok' hd'
  exact ⟨hok.trans hok'.symm, h.becomes hd hd' rfl (hR.load id _ h.1.costs)⟩

theorem Working.store (hR : Costs.Stable R) (h : d.Working R d') (hid : id.InArray) (block : Block) (done : Nat) :
    (d.store id block done).Same (Working R) (d'.store id block done) := by
  obtain ⟨hok, hd⟩ := store_becomes h.1.left h.2 hid block done
  obtain ⟨hok', hd'⟩ := store_becomes h.1.right h.mounted' hid block done
  rw [← h.1.backing] at hd'
  exact ⟨hok.trans hok'.symm, h.becomes hd hd' rfl (hR.store id block h.1.costs)⟩

/-! ### Transfers -/

theorem Working.readChunks {start length : Nat} (hR : Costs.Stable R) (h : d.Working R d')
    (hrange : start + length ≤ totalSize) (done : Nat) :
    (d.readChunks done (chunks start length)).1 = (d'.readChunks done (chunks start length)).1 ∧
      (d.readChunks done (chunks start length)).2.Same (Working R)
        (d'.readChunks done (chunks start length)).2 := by
  induction start, length using chunks_induction generalizing d d' done with
  | done start =>
    rw [chunks_zero]
    exact ⟨rfl, rfl, h⟩
  | chunk start size rest hpos hfit hnext hchunks ih =>
    have hid : (Location.ofAddress start).blockId.InArray := Location.inArray_ofAddress (by omega)
    obtain ⟨hresult, hstate⟩ := h.load hR hid done
    rw [hchunks]
    simp only [Driver.readChunks, Chunk.location, Outcome.result_logged, Outcome.state_logged, ← hresult]
    cases (d.load (Location.ofAddress start).blockId done).result with
    | error e => exact ⟨rfl, rfl, hstate⟩
    | ok block =>
      obtain ⟨hbytes, hrest⟩ := ih hstate (by omega) (done + size)
      exact ⟨by rw [hbytes], hrest.logged _ _⟩

theorem Working.prepare {c : Chunk} (hR : Costs.Stable R) (h : d.Working R d') (hid : c.location.blockId.InArray)
    (data : List UInt8) (done : Nat) :
    (d.prepare c data done).Same (Working R) (d'.prepare c data done) := by
  unfold Driver.prepare
  dsimp only
  by_cases hwhole : c.isWhole
  · rw [if_pos hwhole, if_pos hwhole]
    exact Outcome.same_done h _
  · rw [if_neg hwhole, if_neg hwhole]
    exact (h.load hR hid done).andThen fun _ _ _ hstate => Outcome.same_done hstate _

theorem Working.writeChunks {start length : Nat} (hR : Costs.Stable R) (h : d.Working R d')
    (hrange : start + length ≤ totalSize ∨ length = 0) (data : List UInt8) (done : Nat) :
    (d.writeChunks done data (chunks start length)).Same (Working R)
      (d'.writeChunks done data (chunks start length)) := by
  induction start, length using chunks_induction generalizing d d' data done with
  | done start =>
    rw [chunks_zero]
    exact ⟨rfl, h⟩
  | chunk start size rest hpos hfit hnext hchunks ih =>
    have hstart : start < totalSize := by omega
    have hid : (Chunk.location ⟨start, size⟩).blockId.InArray := Location.inArray_ofAddress hstart
    rw [hchunks, Driver.writeChunks, Driver.writeChunks]
    refine Outcome.Same.logged ?_ _ _
    refine (h.prepare hR hid _ done).andThen fun d₁ d₁' block h₁ => ?_
    refine (h₁.store hR hid block done).andThen fun d₂ d₂' _ h₂ => ?_
    exact ih h₂ (by omega) _ _

theorem Agree.read (hR : Costs.Stable R) (h : d.Agree R d') (start length : Nat) (buffer : Option (List UInt8)) :
    (d.read start length buffer).buffer = (d'.read start length buffer).buffer ∧
      (d.read start length buffer).toOutcome.Same (Agree R) (d'.read start length buffer).toOutcome := by
  unfold Driver.read
  rw [← refuseRead?_congr h.mounted]
  cases hrefuse : d.refuseRead? start length buffer with
  | some e => exact ⟨rfl, rfl, h⟩
  | none =>
    obtain ⟨hm, hrange, -⟩ := refuseRead?_eq_none hrefuse
    obtain ⟨hbytes, hsame⟩ := (h.working hm).readChunks hR hrange 0
    obtain ⟨hresult, hstate⟩ := hsame.andThen fun _ _ _ hstate => Outcome.same_done hstate length
    exact ⟨by simp only [hbytes], hresult, hstate.1⟩

theorem Agree.write (hR : Costs.Stable R) (h : d.Agree R d') (start length : Nat) (data : Option (List UInt8)) :
    (d.write start length data).Same (Agree R) (d'.write start length data) := by
  unfold Driver.write
  rw [← refuseWrite?_congr h.mounted h.writable]
  cases hrefuse : d.refuseWrite? start length data with
  | some e => exact ⟨rfl, h⟩
  | none =>
    obtain ⟨hm, hrange, -⟩ := refuseWrite?_eq_none hrefuse
    obtain ⟨hresult, hstate⟩ := ((h.working hm).writeChunks hR hrange (data.getD []) 0).andThen
      fun _ _ _ hstate => Outcome.same_done hstate length
    exact ⟨hresult, hstate.1⟩

/-! ### The state of the array -/

theorem Agree.permit (h : d.Agree R d') (writable : Bool) : Agree R { d with writable } { d' with writable } :=
  ⟨⟨h.left.backing, h.left.mounted, h.left.coherent⟩, ⟨h.right.backing, h.right.mounted, h.right.coherent⟩,
    h.backing, h.signatures, h.mounted, rfl, h.costs⟩

theorem Agree.mount (h : d.Agree R d') : d.mount.Same (Agree R) d'.mount := by
  unfold Driver.mount
  rw [← h.mounted]
  by_cases hm : d.mounted
  · rw [if_pos hm, if_pos hm]
    exact Outcome.same_fail h _
  · rw [if_neg hm, if_neg hm, issue_mount (h.left.mounted.trans (by simpa using hm)),
      issue_mount (h.right.mounted.trans (by simpa [← h.mounted] using hm))]
    refine ⟨rfl, ⟨h.left.backing, rfl, h.left.coherent⟩, ⟨h.right.backing, rfl, h.right.coherent⟩, h.backing,
      h.signatures, rfl, h.writable, ?_⟩
    have hcosts := h.costs
    simpa [Outcome.done, Outcome.andThen, Outcome.logged, Driver.costs, Tally.of_bump] using hcosts

theorem Agree.unmount (h : d.Agree R d') : d.unmount.Same (Agree R) d'.unmount := by
  unfold Driver.unmount
  rw [← h.mounted]
  by_cases hm : d.mounted
  · rw [if_pos hm, if_pos hm, issue_unmount (h.left.mounted.trans hm),
      issue_unmount (h.right.mounted.trans (h.mounted ▸ hm))]
    refine ⟨rfl, ⟨h.left.backing, rfl, h.left.coherent⟩, ⟨h.right.backing, rfl, h.right.coherent⟩, h.backing,
      h.signatures, rfl, h.writable, ?_⟩
    have hcosts := h.costs
    simpa [Outcome.done, Outcome.andThen, Outcome.logged, Driver.costs, Tally.of_bump] using hcosts
  · rw [if_neg hm, if_neg hm]
    exact Outcome.same_fail h _

theorem Agree.sign (h : d.Agree R d') (disk block : UInt8) :
    (d.sign disk block).Same (Agree R) (d'.sign disk block) := by
  unfold Driver.sign
  rw [← h.mounted]
  by_cases hm : d.mounted
  · have hnot : ¬ (!d.mounted) = true := by simp [hm]
    rw [if_neg hnot, if_neg hnot]
    by_cases hdisk : diskCount ≤ disk.toNat
    · rw [if_pos hdisk, if_pos hdisk]
      exact Outcome.same_fail h _
    · have hid : BlockId.InArray ⟨disk.toNat, block.toNat⟩ := ⟨Nat.lt_of_not_le hdisk, block.toNat_lt⟩
      have hm' : d'.mounted := h.mounted ▸ hm
      rw [if_neg hdisk, if_neg hdisk, seek_eq (h.left.mounted.trans hm), seek_eq (h.right.mounted.trans hm'),
        Outcome.done_andThen, Outcome.done_andThen, issue_signBlock h.left hm hid,
        issue_signBlock h.right hm' hid]
      refine ⟨rfl, ⟨h.left.backing, h.left.mounted, h.left.coherent⟩,
        ⟨h.right.backing, h.right.mounted, h.right.coherent⟩, h.backing, ?_, h.mounted, h.writable, ?_⟩
      · simp only [Outcome.done, Outcome.andThen, Outcome.logged, h.backing, h.signatures]
      · have hcosts := h.costs
        simpa [Outcome.done, Outcome.andThen, Outcome.logged, Driver.costs, Device.seekTo, Tally.of_bump]
          using hcosts
  · have hnot : (!d.mounted) = true := by simpa using hm
    rw [if_pos hnot, if_pos hnot]
    exact Outcome.same_fail h _

/-! ### Runs -/

/-- A request is answered alike. -/
theorem Agree.serve (hR : Costs.Stable R) (h : d.Agree R d') (r : Request) :
    (d.serve r).1 = (d'.serve r).1 ∧ (d.serve r).2.Agree R (d'.serve r).2 := by
  cases r with
  | mount =>
    obtain ⟨hresult, hstate⟩ := h.mount
    exact ⟨congrArg Answer.state hresult, hstate⟩
  | unmount =>
    obtain ⟨hresult, hstate⟩ := h.unmount
    exact ⟨congrArg Answer.state hresult, hstate⟩
  | grant => exact ⟨rfl, h.permit true⟩
  | revoke => exact ⟨rfl, h.permit false⟩
  | read start length buffer =>
    obtain ⟨hbuffer, hresult, hstate⟩ := h.read hR start length buffer
    exact ⟨congrArg₂ Answer.transfer hresult hbuffer, hstate⟩
  | write start length data =>
    obtain ⟨hresult, hstate⟩ := h.write hR start length data
    exact ⟨congrArg (Answer.transfer · data) hresult, hstate⟩
  | sign disk block =>
    obtain ⟨hresult, hstate⟩ := h.sign disk block
    exact ⟨congrArg Answer.state hresult, hstate⟩

theorem Agree.run (hR : Costs.Stable R) (h : d.Agree R d') (requests : List Request) :
    (d.run (requests.map .request)).1 = (d'.run (requests.map .request)).1 ∧
      (d.run (requests.map .request)).2.Agree R (d'.run (requests.map .request)).2 := by
  induction requests generalizing d d' with
  | nil => exact ⟨rfl, h⟩
  | cons r requests ih =>
    obtain ⟨hanswer, hserved⟩ := h.serve hR r
    obtain ⟨hanswers, hlast⟩ := ih hserved
    refine ⟨?_, hlast⟩
    show (r, (d.serve r).1) :: _ = (r, (d'.serve r).1) :: _
    rw [hanswer, hanswers]

end Driver

end DiskArray
